import AgenticSoc.BlackboardReads

/-!
# The status of a replica object

One field holds both the operational switch and the divergence mark. The switch
keeps a replica out until the field is written again, and `mark_diverged` writes it
whatever it holds. A missed commit marks its replica, and the mark stays until the
field is written again; a repair of the same key that started after the write was
reported only clears it once the replica has caught up.
-/
namespace BlackboardAvailability

open BlackboardRecord BlackboardStorage BlackboardReplica BlackboardCoordinator BlackboardSystem
open BlackboardProtocol BlackboardTrace BlackboardAgreement BlackboardReads Interaction Interleaving

variable {V : Type} {S : System V} {as : List (Step V)} {c : Configuration S}

/-! ## Who writes the status -/

section Status

variable (site : Nat) (e : Env V) (w : World S.codec) (s : Nat) (ρ : ReplicaId)

/-- A call writes `HEALTHY` over another status only by clearing a divergence. -/
theorem exec_not_healthy {q : Call V} (h : (w.status s ρ).health ≠ .healthy)
    (hq : q = .clearDivergence ρ → s ≠ site) :
    ((exec S site q e w).1.status s ρ).health ≠ .healthy := by
  rw [exec_status]
  cases q with
  | markDiverged σ detail =>
    simp only
    split
    · exact nofun
    · exact h
  | clearDivergence σ =>
    simp only
    split
    · rename_i hs
      exact absurd hs.1 (hq (by rw [hs.2]))
    · exact h
  | _ => exact h

/-- A call writes over `UNAVAILABLE` only by marking a divergence. -/
theorem exec_unavailable {q : Call V} (h : (w.status s ρ).health = .unavailable)
    (hq : ∀ detail, q = .markDiverged ρ detail → s ≠ site) :
    ((exec S site q e w).1.status s ρ).health = .unavailable := by
  rw [exec_status]
  cases q with
  | markDiverged σ detail =>
    simp only
    split
    · rename_i hs
      exact absurd hs.1 (hq detail (by rw [hs.2]))
    · exact h
  | clearDivergence σ =>
    simp only
    split
    · rename_i hs
      obtain ⟨rfl, rfl⟩ := hs
      unfold clearDivergence
      rw [if_neg (by rw [h]; exact nofun)]
      exact h
    · exact h
  | _ => exact h

end Status

/-! ## Unavailability -/

/-- The call asks the replica for something. -/
def Addresses (ρ : ReplicaId) : Call V → Prop
  | .prepare σ _ _ | .commit σ _ _ | .abort σ _ _ _ | .upsertExternal σ _ _ | .observe σ _ _ => σ = ρ
  | _ => False

/-- The reply is a refusal: it counts for no quorum. -/
def Refused : (q : Call V) → q.Reply → Prop
  | .prepare .., a => a.ackStatus = .unavailable
  | .commit .., a => a.ackStatus = .unavailable
  | .abort .., a => a.ackStatus = .unavailable
  | .upsertExternal .., a => a.ackStatus = .unavailable
  | .observe .., o => o.responded = false ∧ o.found = false
  | _, _ => True

/-- A refused transaction leaves every store as it is. -/
theorem onStore_refused {cd : RecordCodec V} (w : World cd) (ρ : ReplicaId)
    {f : Tables → Tables × ReplicaAckV1} (h : ∀ t, Valid t → Edit (Genuine cd) t (f t).1)
    (hf : ∀ t, Refuses (f t) t) :
    (w.onStore ρ f h).2.ackStatus = .unavailable ∧
      ∀ σ, ((w.onStore ρ f h).1.store σ).tables = (w.store σ).tables := by
  refine ⟨(hf _).2, ?_⟩
  intro σ
  rw [onStore_tables, (hf _).1]
  by_cases hσ : σ = ρ
  · rw [if_pos hσ, hσ]
  · rw [if_neg hσ]

/-- An unavailable replica refuses every such call and its store stays as it is. -/
theorem exec_refused (site : Nat) (e : Env V) (w : World S.codec) {ρ : ReplicaId} {q : Call V}
    (hst : (w.status site ρ).health = .unavailable) (hq : Addresses ρ q) :
    Refused q (exec S site q e w).2 ∧
      ∀ σ, ((exec S site q e w).1.store σ).tables = (w.store σ).tables := by
  cases q with
  | prepare σ op r =>
    cases hq
    exact onStore_refused w ρ (fun t _ => prepare_genuine _ ρ _ e op r t) (prepare_refuses hst _ op r)
  | commit σ op r =>
    cases hq
    exact onStore_refused w ρ (fun _ ht => (commit_edit ρ _ e ht op r).mono fun _ hf => hf.elim)
      (commit_refuses hst op r)
  | abort σ op k v =>
    cases hq
    exact onStore_refused w ρ (fun t _ => (abort_edit ρ _ e t op k v).mono fun _ hf => hf.elim)
      (abort_refuses hst op k v)
  | upsertExternal σ op r =>
    cases hq
    exact onStore_refused w ρ (fun t _ => upsert_genuine ρ _ e op r t) (upsertExternal_refuses hst op r)
  | observe σ k v =>
    cases hq
    refine ⟨?_, fun _ => rfl⟩
    change (observeReplica S.codec ρ _ e k v _).responded = false ∧
      (observeReplica S.codec ρ _ e k v _).found = false
    unfold observeReplica
    rw [if_pos hst]
    exact ⟨rfl, rfl⟩
  | headRow σ k => exact hq.elim
  | health σ => exact hq.elim
  | markDiverged σ detail => exact hq.elim
  | clearDivergence σ => exact hq.elim

/-- The event lets something through an unavailable replica: it writes its status
anew or reads its head row, which no check guards. -/
def LetsThrough (tr : Trace V) (site : Nat) (ρ : ReplicaId) : LogEvent V → Prop
  | .called i (.markDiverged σ _) _ | .called i (.headRow σ _) _ =>
    σ = ρ ∧ ∃ t, tr[i]? = some (.started t) ∧ t.coordinator.site = site
  | .operated (.markDiverged s σ _) | .operated (.setAvailable s σ) => s = site ∧ σ = ρ
  | .operated (.restart s) => s = site
  | _ => False

theorem LetsThrough.mono {tr tr' : Trace V} {site : Nat} {ρ : ReplicaId} {x : LogEvent V}
    (hg : ∀ (i : Nat) y, tr[i]? = some y → tr'[i]? = some y) (h : LetsThrough tr site ρ x) :
    LetsThrough tr' site ρ x := by
  cases x with
  | called i q a =>
    cases q with
    | markDiverged σ d =>
      obtain ⟨hσ, t, ht, hs⟩ := h
      exact ⟨hσ, t, hg i _ ht, hs⟩
    | headRow σ k =>
      obtain ⟨hσ, t, ht, hs⟩ := h
      exact ⟨hσ, t, hg i _ ht, hs⟩
    | _ => exact h.elim
  | operated o => cases o <;> exact h
  | started t => exact h
  | finished i t a => exact h

/-- Since event `m` nothing was let through. -/
def ShutSince (tr : Trace V) (m site : Nat) (ρ : ReplicaId) : Prop :=
  ∀ (n : Nat) x, m < n → tr[n]? = some x → ¬ LetsThrough tr site ρ x

theorem ShutSince.of_concat {tr : Trace V} {y : LogEvent V} {m site : Nat} {ρ : ReplicaId}
    (h : ShutSince (tr ++ [y]) m site ρ) : ShutSince tr m site ρ := by
  intro n x hn hx hl
  exact h n x hn (getElem?_concat_of_some hx) (hl.mono fun _ _ => getElem?_concat_of_some)

theorem ShutSince.last {tr : Trace V} {y : LogEvent V} {m site : Nat} {ρ : ReplicaId}
    (h : ShutSince (tr ++ [y]) m site ρ) (hm : m < tr.length) :
    ¬ LetsThrough (tr ++ [y]) site ρ y :=
  h tr.length y hm (by simp)

/-- An operator action that lets nothing through keeps a replica unavailable. -/
theorem operate_unavailable {o : Operation} {w : World S.codec} {tr : Trace V} {site : Nat}
    {ρ : ReplicaId} (h : (w.status site ρ).health = .unavailable)
    (ho : ¬ LetsThrough tr site ρ (.operated o)) :
    ((operate S o w).status site ρ).health = .unavailable := by
  cases o with
  | setUnavailable s σ reason =>
    simp only [operate, World.onStatus]
    split
    · rfl
    · exact h
  | setAvailable s σ =>
    simp only [operate, World.onStatus]
    split
    · rename_i hs
      exact absurd ⟨hs.1.symm, hs.2.symm⟩ ho
    · exact h
  | markDiverged s σ detail =>
    simp only [operate, World.onStatus]
    split
    · rename_i hs
      exact absurd ⟨hs.1.symm, hs.2.symm⟩ ho
    · exact h
  | clearDivergence s σ =>
    simp only [operate, World.onStatus]
    split
    · rename_i hs
      obtain ⟨rfl, rfl⟩ := hs
      unfold clearDivergence
      rw [if_neg (by rw [h]; exact nofun)]
      exact h
    · exact h
  | restart s =>
    simp only [operate]
    split
    · rename_i hs
      exact absurd hs.symm ho
    · exact h

/-- The switch stays where the operator put it while nothing is let through. -/
theorem status_unavailable (h : Reaches S as c) {m site : Nat} {ρ : ReplicaId} {reason : String}
    (hm : c.trace[m]? = some (.operated (.setUnavailable site ρ reason)))
    (hshut : ShutSince c.trace m site ρ) : (c.state.status site ρ).health = .unavailable := by
  have hall : c.trace[m]? = some (.operated (.setUnavailable site ρ reason)) →
      ShutSince c.trace m site ρ → (c.state.status site ρ).health = .unavailable := by
    refine Machine.run_shared (meets S) (J := fun sh =>
      sh.trace[m]? = some (.operated (.setUnavailable site ρ reason)) →
      ShutSince sh.trace m site ρ → (sh.state.status site ρ).health = .unavailable)
      (P := fun _ _ => True) ?_ ?_ ?_ ?_ ((machine S).along_of_forall (fun _ _ _ => trivial) _) h ?_
    · intro d t _ hj hm hs
      rcases getElem?_concat_cases hm with ⟨-, hm⟩ | ⟨-, he⟩
      · exact hj hm hs.of_concat
      · cases he
    · intro before d i e t q k _ _ _ ht _ hj hm hs
      rcases getElem?_concat_cases hm with ⟨hlt, hm⟩ | ⟨-, he⟩
      · refine exec_unavailable _ e d.state site ρ (hj hm hs.of_concat) ?_
        rintro detail rfl hsite
        exact hs.last hlt ⟨rfl, t, getElem?_concat_of_some ht, hsite.symm⟩
      · cases he
    · intro d i t a _ hj hm hs
      rcases getElem?_concat_cases hm with ⟨-, hm⟩ | ⟨-, he⟩
      · exact hj hm hs.of_concat
      · cases he
    · intro d o _ hj hm hs
      rcases getElem?_concat_cases hm with ⟨hlt, hm⟩ | ⟨-, he⟩
      · exact operate_unavailable (hj hm hs.of_concat) (hs.last hlt)
      · cases he
        change ((operate S (.setUnavailable site ρ reason) d.state).status site ρ).health = .unavailable
        simp [operate, World.onStatus, setUnavailable]
    · intro hm
      cases hm
  exact hall hm hshut

/-- In every run: after `set_unavailable`, while nobody writes the status anew and no
repair reads the head row behind it, the replica stays `UNAVAILABLE`, and every
prepare, commit, abort, repair and read that its process sends it is refused and
leaves every store as it was. -/
theorem unavailability_sticky (h : Reaches S as c) {m site : Nat} {ρ : ReplicaId} {reason : String}
    (hm : c.trace[m]? = some (.operated (.setUnavailable site ρ reason)))
    (hshut : ShutSince c.trace m site ρ) :
    (c.state.status site ρ).health = .unavailable ∧
    ∀ (n i : Nat) t q a, m < n → c.trace[n]? = some (.called i q a) →
      c.trace[i]? = some (.started t) → t.coordinator.site = site → Addresses ρ q →
      Refused q a ∧ ∃ before d e, Reaches S before d ∧ d.trace = c.trace.take n ∧
        a = (exec S site q e d.state).2 ∧
        ∀ σ, ((exec S site q e d.state).1.store σ).tables = (d.state.store σ).tables := by
  refine ⟨status_unavailable h hm hshut, ?_⟩
  intro n i t q a hn hcall ht hsite hq
  obtain ⟨before, d, u, e, hd, htake, hu, hreply, -⟩ := call_at h hcall
  rw [ht, Option.some.injEq, Event.started.injEq] at hu
  subst hu
  rw [hsite] at hreply
  -- the run up to the call is one to which the same argument applies
  have hm' : d.trace[m]? = some (.operated (.setUnavailable site ρ reason)) := by
    rw [htake, List.getElem?_take_of_lt hn]
    exact hm
  have hshut' : ShutSince d.trace m site ρ := by
    intro n' x hn' hx hl
    rw [htake] at hx hl
    exact hshut n' x hn' (getElem?_of_take hx) (hl.mono fun _ _ => getElem?_of_take)
  obtain ⟨hrefused, hstore⟩ := exec_refused site e d.state (status_unavailable hd hm' hshut') hq
  rw [← hreply] at hrefused
  exact ⟨hrefused, before, d, e, hd, htake, hreply, hstore⟩

/-- The event is of a kind that lets nothing through. -/
def quiet : LogEvent V → Bool
  | .called _ (.markDiverged ..) _ | .called _ (.headRow ..) _ => false
  | .operated (.setUnavailable ..) => true
  | .operated _ => false
  | _ => true

theorem shutSince_of_quiet {tr : Trace V} {m : Nat} (h : (tr.drop (m + 1)).all quiet = true) (site : Nat)
    (ρ : ReplicaId) : ShutSince tr m site ρ := by
  intro n x hn hx hl
  have hmem : x ∈ tr.drop (m + 1) := by
    apply List.mem_of_getElem? (i := n - (m + 1))
    rw [List.getElem?_drop, show m + 1 + (n - (m + 1)) = n by omega]
    exact hx
  have hquiet := List.all_eq_true.mp h x hmem
  cases x with
  | called i q a => cases q <;> first | exact hl.elim | cases hquiet
  | operated o => cases o <;> first | exact hl.elim | cases hquiet
  | started t => exact hl.elim
  | finished i t a => exact hl.elim

def isOperation (o : Operation) : LogEvent V → Bool
  | .operated o' => o' = o
  | _ => false

theorem isOperation_eq {o : Operation} {x : LogEvent V} (h : isOperation o x = true) :
    x = .operated o := by
  cases x with
  | operated o' => rw [of_decide_eq_true h]
  | _ => cases h

def devSwitchOff : Operation := .setUnavailable 0 .replicaC "maintenance"

/-- The replica is switched off and then a write commits on the other two. -/
def devShutRun : List (Step String) :=
  [.operate devSwitchOff, devPropose (devCoordinator 0 0 2 devQuorum_pos) "bbw-1" 1 1] ++ calls 1 6 0 ++
    [.finish 1]

theorem unavailability_sticky_dev : ∃ c, Reaches devSystem devShutRun c ∧
    c.trace.any (reports devSystem (devRecord 1 1) .committed) = true ∧
    (c.state.status 0 .replicaC).health = .unavailable := by
  obtain ⟨c, hc, hcheck⟩ := reaches_of_any devSystem devShutRun
    (fun c => c.trace.any (reports devSystem (devRecord 1 1) .committed) &&
      c.trace[0]?.any (isOperation devSwitchOff) && (c.trace.drop 1).all quiet) (by decide)
  simp only [Bool.and_eq_true, Option.any_eq_true] at hcheck
  obtain ⟨⟨hrep, x, hx, ho⟩, hquiet⟩ := hcheck
  rw [isOperation_eq ho] at hx
  exact ⟨c, hc, hrep, (unavailability_sticky hc hx (shutSince_of_quiet hquiet 0 .replicaC)).1⟩

/-- The replica is switched off between its prepare and its commit; a read follows. -/
def devMissRun : List (Step String) :=
  [devPropose (devCoordinator 0 0 2 devQuorum_pos) "bbw-1" 1 1] ++ calls 0 3 0 ++
    [.operate devSwitchOff] ++ calls 0 4 0 ++ [.finish 0] ++
  [devRead (devCoordinator 0 0 2 devQuorum_pos) "bbr-1"] ++ calls 10 4 0 ++ [.finish 10]

/-- The event is an answered observation of the replica. -/
def answered (ρ : ReplicaId) : LogEvent V → Bool
  | .called _ (.observe σ _ _) o => σ = ρ && o.responded
  | _ => false

theorem unavailability_overwritten : ∃ c, Reaches devSystem devMissRun c ∧
    c.trace[4]? = some (.operated devSwitchOff) ∧
    (∀ o, Event.operated o ∈ c.trace → o = devSwitchOff) ∧
    (c.state.status 0 .replicaC).health = .diverged ∧
    (c.trace.drop 5).any (answered .replicaC) = true := by
  obtain ⟨c, hc, hcheck⟩ := reaches_of_any devSystem devMissRun
    (fun c => c.trace[4]?.any (isOperation devSwitchOff) &&
      c.trace.all (fun x => match x with | .operated o => o = devSwitchOff | _ => true) &&
      decide ((c.state.status 0 .replicaC).health = .diverged) &&
      (c.trace.drop 5).any (answered .replicaC)) (by decide)
  simp only [Bool.and_eq_true, Option.any_eq_true, decide_eq_true_eq] at hcheck
  obtain ⟨⟨⟨⟨x, hx, ho⟩, hall⟩, hst⟩, hans⟩ := hcheck
  rw [isOperation_eq ho] at hx
  refine ⟨c, hc, hx, ?_, hst, hans⟩
  intro o hm
  simpa using List.all_eq_true.mp hall _ hm

/-! ## The divergence mark -/

/-- The call is a repair of the key that started after event `n`, with a majority
quorum. -/
def RepairsAfter (n j : Nat) (k : String) (u : Request V) : Prop :=
  n < j ∧ 2 ≤ u.coordinator.settings.quorumSize ∧
    ∃ principal targets, u.command = .resync principal k targets

/-- The event may clear a mark without the replica having caught up on the key: an
operator's switch, clearing or restart, or a repair that is of another key or did not
start after event `n`. -/
def Unmarks (tr : Trace V) (n site : Nat) (k : String) (ρ : ReplicaId) : LogEvent V → Prop
  | .called j (.clearDivergence σ) _ => σ = ρ ∧ ∃ u, tr[j]? = some (.started u) ∧
      u.coordinator.site = site ∧ ¬ RepairsAfter n j k u
  | .operated (.setAvailable s σ) | .operated (.clearDivergence s σ) => s = site ∧ σ = ρ
  | .operated (.restart s) => s = site
  | _ => False

theorem Unmarks.concat {tr : Trace V} {n site : Nat} {k : String} {ρ : ReplicaId} {x : LogEvent V}
    (h : Unmarks tr n site k ρ x) (y : LogEvent V) : Unmarks (tr ++ [y]) n site k ρ x := by
  cases x with
  | called i q a =>
    cases q with
    | clearDivergence σ =>
      obtain ⟨hσ, u, hu, hs⟩ := h
      exact ⟨hσ, u, getElem?_concat_of_some hu, hs⟩
    | _ => exact h.elim
  | operated o => cases o <;> exact h
  | started t => exact h
  | finished i t a => exact h

/-- Since event `l` nothing has cleared the mark in such a way. -/
def MarkedSince (tr : Trace V) (l n site : Nat) (k : String) (ρ : ReplicaId) : Prop :=
  ∀ (m : Nat) x, l < m → tr[m]? = some x → ¬ Unmarks tr n site k ρ x

theorem MarkedSince.of_concat {tr : Trace V} {y : LogEvent V} {l n site : Nat} {k : String}
    {ρ : ReplicaId} (h : MarkedSince (tr ++ [y]) l n site k ρ) : MarkedSince tr l n site k ρ := by
  intro m x hm hx hu
  exact h m x hm (getElem?_concat_of_some hx) (hu.concat y)

theorem MarkedSince.last {tr : Trace V} {y : LogEvent V} {l n site : Nat} {k : String}
    {ρ : ReplicaId} (h : MarkedSince (tr ++ [y]) l n site k ρ) (hl : l < tr.length) :
    ¬ Unmarks (tr ++ [y]) n site k ρ y :=
  h tr.length y hl (by simp)

/-- An operator action that clears no mark writes no `HEALTHY`. -/
theorem operate_not_healthy {o : Operation} {w : World S.codec} {tr : Trace V} {n site : Nat}
    {k : String} {ρ : ReplicaId} (h : (w.status site ρ).health ≠ .healthy)
    (ho : ¬ Unmarks tr n site k ρ (.operated o)) :
    ((operate S o w).status site ρ).health ≠ .healthy := by
  cases o with
  | setUnavailable s σ reason =>
    simp only [operate, World.onStatus]
    split
    · exact nofun
    · exact h
  | setAvailable s σ =>
    simp only [operate, World.onStatus]
    split
    · rename_i hs
      exact absurd ⟨hs.1.symm, hs.2.symm⟩ ho
    · exact h
  | markDiverged s σ detail =>
    simp only [operate, World.onStatus]
    split
    · exact nofun
    · exact h
  | clearDivergence s σ =>
    simp only [operate, World.onStatus]
    split
    · rename_i hs
      exact absurd ⟨hs.1.symm, hs.2.symm⟩ ho
    · exact h
  | restart s =>
    simp only [operate]
    split
    · rename_i hs
      exact absurd hs.symm ho
    · exact h

/-- The replica's committed history of the key contains the version. -/
def Contains {cd : RecordCodec V} (w : World cd) (ρ : ReplicaId) (k : String) (v : Nat) : Prop :=
  (getCommittedRow (w.store ρ).tables k v).isSome

theorem Contains.grow {cd : RecordCodec V} {w w' : World cd} (hg : RowsGrow w w') {ρ : ReplicaId}
    {k : String} {v : Nat} (h : Contains w ρ k v) : Contains w' ρ k v := by
  obtain ⟨row, hrow⟩ := Option.isSome_iff_exists.mp h
  unfold Contains
  rw [hg ρ k v row hrow]
  rfl

/-- A repair of the key that started after a write was reported `COMMITTED` clears the
mark only of a replica that has the version of that write. -/
theorem repaired_contains (h : Reaches S as c) {n i j : Nat} {t u : Request V} {res : WriteResultV1}
    {r : BlackboardRecordV1 V} (hn : c.trace[n]? = some (.finished i t (.write (.ok res))))
    (hr : proposedRecord S t = some r) (hc : res.outcome = .committed) {ρ : ReplicaId}
    (hrepair : RepairsAfter n j r.recordKey u)
    (hcall : MayCall S u (.clearDivergence ρ) (callsOf j c.trace)) :
    Contains c.state ρ r.recordKey r.recordVersion := by
  obtain ⟨hj, hq, principal, targets, hcmd⟩ := hrepair
  simp only [MayCall, hcmd] at hcall
  obtain ⟨op, r', ack, hm, hack, hkey, hagree⟩ := hcall
  obtain ⟨D, hD, hall⟩ := committed_atLeast h hn hr hc
  have hle : r.recordVersion ≤ r'.recordVersion := by
    refine latest_at_least (m := c.trace.length) h hD (fun ρ hρ => (hall ρ hρ).1) hj hq ?_
    rw [List.take_length]
    exact hagree
  have hpos : 1 ≤ r.recordVersion := by
    obtain ⟨σ, hσ⟩ : D.Nonempty := Finset.card_pos.mp (by omega)
    exact (hall σ hσ).2.bounds.1
  have hhead := (leaves h ((mem_callsOf).mp hm) hack : HoldsId _ _ _ _ _).bounds.2
  rw [hkey] at hhead
  exact ((c.state.store ρ).valid.getCommittedRow_isSome _ _).mpr ⟨hpos, by omega⟩

/-- A mark of the replica holds until the replica has the version or something clears
it. -/
theorem marked_or_contains (h : Reaches S as c) {n i l : Nat} {t : Request V} {res : WriteResultV1}
    {r : BlackboardRecordV1 V} (hr : proposedRecord S t = some r) (hc : res.outcome = .committed)
    {ρ : ReplicaId} {detail : String} (ht : c.trace[i]? = some (.started t))
    (hn : c.trace[n]? = some (.finished i t (.write (.ok res))))
    (hl : c.trace[l]? = some (madeCall i (.markDiverged ρ detail) ()))
    (hmarked : MarkedSince c.trace l n t.coordinator.site r.recordKey ρ) :
    (c.state.status t.coordinator.site ρ).health ≠ .healthy ∨
      Contains c.state ρ r.recordKey r.recordVersion := by
  let fin : LogEvent V := .finished i t (.write (.ok res))
  have hall : (∀ x, c.trace[n]? = some x → x = fin) → (∀ x, c.trace[i]? = some x → x = .started t) →
      c.trace[l]? = some (madeCall i (.markDiverged ρ detail) ()) →
      MarkedSince c.trace l n t.coordinator.site r.recordKey ρ →
      (c.state.status t.coordinator.site ρ).health ≠ .healthy ∨
        Contains c.state ρ r.recordKey r.recordVersion := by
    refine Machine.run_shared (meets S) (J := fun sh => (∀ x, sh.trace[n]? = some x → x = fin) →
      (∀ x, sh.trace[i]? = some x → x = .started t) →
      sh.trace[l]? = some (madeCall i (.markDiverged ρ detail) ()) →
      MarkedSince sh.trace l n t.coordinator.site r.recordKey ρ →
      (sh.state.status t.coordinator.site ρ).health ≠ .healthy ∨
        Contains sh.state ρ r.recordKey r.recordVersion)
      (P := fun _ _ => True) ?_ ?_ ?_ ?_ ((machine S).along_of_forall (fun _ _ _ => trivial) _) h ?_
    · intro d u _ hj hfin hstart hl hm
      rcases getElem?_concat_cases hl with ⟨-, hl⟩ | ⟨-, he⟩
      · exact hj (fun x hx => hfin x (getElem?_concat_of_some hx))
          (fun x hx => hstart x (getElem?_concat_of_some hx)) hl hm.of_concat
      · cases he
    · intro before d j e u q k hd _ _ hu hpre hj hfin hstart hl hm
      have hg : RowsGrow d.state (exec S u.coordinator.site q e d.state).1 :=
        fun ρ k v row hrow => exec_committed _ q e d.state ρ hrow
      rcases getElem?_concat_cases hl with ⟨hlt, hl⟩ | ⟨-, he⟩
      · rcases hj (fun x hx => hfin x (getElem?_concat_of_some hx))
          (fun x hx => hstart x (getElem?_concat_of_some hx)) hl hm.of_concat with hst | hin
        · by_cases hclear : q = .clearDivergence ρ ∧ t.coordinator.site = u.coordinator.site
          · -- a clearing that is no unmarking is a repair of the key, after the write
            obtain ⟨rfl, hsite⟩ := hclear
            have hrepair : RepairsAfter n j r.recordKey u := by
              by_contra hno
              exact hm.last hlt ⟨rfl, u, getElem?_concat_of_some hu, hsite.symm, hno⟩
            have hnlt : n < d.trace.length := by
              have := (List.getElem?_eq_some_iff.mp hu).1
              have := hrepair.1
              omega
            have hdn : d.trace[n]? = some fin := by
              have hx := List.getElem?_eq_getElem hnlt
              rw [hx, hfin _ (getElem?_concat_of_some hx)]
            exact .inr ((repaired_contains hd hdn hr hc hrepair hpre).grow hg)
          · refine .inl (exec_not_healthy _ e d.state _ ρ hst ?_)
            intro hq hsite
            exact hclear ⟨hq, hsite⟩
        · exact .inr (hin.grow hg)
      · -- this call is the mark
        cases he
        have hut : u = t := by
          have := hstart _ (getElem?_concat_of_some hu)
          simpa using this
        subst hut
        refine .inl ?_
        change ((exec S u.coordinator.site (.markDiverged ρ detail) e d.state).1.status
          u.coordinator.site ρ).health ≠ .healthy
        rw [exec_status]
        simp [markDiverged]
    · intro d j u a _ hj hfin hstart hl hm
      rcases getElem?_concat_cases hl with ⟨-, hl⟩ | ⟨-, he⟩
      · exact hj (fun x hx => hfin x (getElem?_concat_of_some hx))
          (fun x hx => hstart x (getElem?_concat_of_some hx)) hl hm.of_concat
      · cases he
    · intro d o _ hj hfin hstart hl hm
      rcases getElem?_concat_cases hl with ⟨hlt, hl⟩ | ⟨-, he⟩
      · rcases hj (fun x hx => hfin x (getElem?_concat_of_some hx))
          (fun x hx => hstart x (getElem?_concat_of_some hx)) hl hm.of_concat with hst | hin
        · exact .inl (operate_not_healthy hst (hm.last hlt))
        · exact .inr (hin.grow (RowsGrow.of_store (operate_store d.state o)))
      · cases he
    · intro _ _ hl
      cases hl
  refine hall ?_ ?_ hl hmarked
  · intro x hx
    rw [hn] at hx
    exact (Option.some.inj hx).symm
  · intro x hx
    rw [ht] at hx
    exact (Option.some.inj hx).symm

/-- The event is a commit of the record by task `i` that the replica did not
acknowledge. -/
def missed [DecidableEq V] (i : Nat) (ρ : ReplicaId) (r : BlackboardRecordV1 V) : LogEvent V → Bool
  | .called j (.commit σ _ s) ack => j = i && σ = ρ && s = r && ack.ackStatus ≠ .ackCommitted
  | _ => false

theorem missed_cases [DecidableEq V] {i : Nat} {ρ : ReplicaId} {r : BlackboardRecordV1 V} {x : LogEvent V}
    (h : missed i ρ r x = true) :
    ∃ op ack, x = madeCall i (.commit ρ op r) ack ∧ ack.ackStatus ≠ .ackCommitted := by
  unfold missed at h
  split at h
  · rename_i j σ op s ack
    simp only [Bool.and_eq_true, decide_eq_true_eq] at h
    obtain ⟨⟨⟨rfl, rfl⟩, rfl⟩, hack⟩ := h
    exact ⟨op, ack, rfl, hack⟩
  · cases h

/-- The event clears no mark. -/
def clearsNothing : LogEvent V → Bool
  | .called _ (.clearDivergence _) _ => false
  | .operated _ => false
  | _ => true

theorem markedSince_of_clearsNothing {tr : Trace V} (h : tr.all clearsNothing = true) (l n site : Nat)
    (k : String) (ρ : ReplicaId) : MarkedSince tr l n site k ρ := by
  intro m x _ hx hu
  have hquiet := List.all_eq_true.mp h x (List.mem_of_getElem? hx)
  cases x with
  | called i q a => cases q <;> first | exact hu.elim | cases hquiet
  | operated o => cases hquiet
  | started t => exact hu.elim
  | finished i t a => exact hu.elim

/-- A write that commits on two replicas; the third prepares and misses its commit. -/
def devMissedRun : List (Step String) :=
  [devPropose (devCoordinator 0 0 2 devQuorum_pos) "bbw-1" 1 1] ++ calls 0 5 0 ++ failedCall 0 0 ++
    calls 0 1 0 ++ [.finish 0]

def endsFirst : LogEvent String → Bool
  | .finished i _ _ => decide (i = 0)
  | _ => false

/-- The record was reported `COMMITTED`, the third replica lacks it and is `HEALTHY`. -/
def HealthyWithout (r : BlackboardRecordV1 String) (c : Configuration devSystem) : Prop :=
  c.trace.any (reports devSystem r .committed) = true ∧
    ¬ Contains c.state .replicaC r.recordKey r.recordVersion ∧
    (c.state.status 0 .replicaC).health = .healthy

instance (r : BlackboardRecordV1 String) (c : Configuration devSystem) :
    Decidable (HealthyWithout r c) := inferInstanceAs (Decidable (_ ∧ ¬ (_ = true) ∧ _))

/-- After the missed commit the replica is switched off and on again. -/
def devToggledRun : List (Step String) :=
  devMissedRun ++ [.operate devSwitchOff, .operate (.setAvailable 0 .replicaC)]

/-- A record of another key is on all replicas, and after the missed commit that key
is repaired. -/
def devOtherKeyRun : List (Step String) :=
  let q := devCoordinator 0 0 2 devQuorum_pos
  [.start ⟨q, "bbw-1", .propose (.draft { devDraft 1 1 with recordKey := "ops" }) "agent"⟩] ++
    calls 0 6 0 ++ [.finish 0] ++
  [devPropose q "bbw-2" 1 1] ++ calls 8 5 0 ++ failedCall 8 0 ++ calls 8 1 0 ++ [.finish 8] ++
  [.start ⟨q, "bbx-1", .resync "agent" "ops" (some [.replicaC])⟩] ++ calls 17 6 0 ++ [.finish 17]

/-- A repair has seen version 1 on all replicas when version 2 is written, whose
commit the third replica misses; then the repair goes on. -/
def devEarlyRepairRun : List (Step String) :=
  let q := devCoordinator 0 0 2 devQuorum_pos
  [devPropose q "bbw-1" 1 1] ++ calls 0 6 0 ++ [.finish 0] ++
  [.start ⟨q, "bbx-1", .resync "agent" "dev" (some [.replicaC])⟩] ++ calls 8 3 0 ++
  [devPropose q "bbw-2" 2 1] ++ calls 12 5 0 ++ failedCall 12 0 ++ calls 12 1 0 ++ [.finish 12] ++
    calls 8 3 0 ++ [.finish 8]

/-- The third replica is down for the prepare, so no commit is sent to it. -/
def devUnpreparedRun : List (Step String) :=
  [devPropose (devCoordinator 0 0 2 devQuorum_pos) "bbw-1" 1 1] ++ calls 0 2 0 ++
    [.advance 0 (failing 0 (.hookUnavailable "down"))] ++ calls 0 3 0 ++ [.finish 0]

end BlackboardAvailability
