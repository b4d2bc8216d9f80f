import AgenticSoc.ActionLookup
import Mathlib.Data.List.AList

/-!
# Committing actions at once

Several threads commit at once. Each looks whether the key has a decision, takes the lock,
looks again, and writes. The ledger keeps the newest keys only.
-/
namespace ActionCommits

open WorkflowGateway
open ActionLookup (Turn)

abbrev Key := String × String × Int × String

def keyOf (t : Turn) : Key := (t.workflowId, t.replayId, t.windowId, t.entityId)

/-! ## The ledger -/

abbrev Store := AList fun _ : Key => EnforcementDecisionV1

structure InMemoryLedger where
  limit : { n : Nat // 1 ≤ n }
  store : Store
  order : List Key

def InMemoryLedger.new (limit : { n : Nat // 1 ≤ n }) : InMemoryLedger := ⟨limit, ∅, []⟩

def InMemoryLedger.get (l : InMemoryLedger) (key : Key) : Option EnforcementDecisionV1 := l.store.lookup key

/-- The oldest keys go while there are too many. -/
def evict (limit : Nat) : List Key → Store → List Key × Store
  | [], store => ([], store)
  | old :: order, store =>
    if limit < (old :: order).length then evict limit order (store.erase old) else (old :: order, store)

def InMemoryLedger.put (l : InMemoryLedger) (key : Key) (decision : EnforcementDecisionV1) : InMemoryLedger :=
  let kept := if key ∈ l.store then (l.order, l.store) else evict l.limit (l.order ++ [key]) l.store
  { l with order := kept.1, store := kept.2.insert key decision }

/-! ## One call -/

inductive CommitError where
  | notSafe
  | mismatch (field : String)
  | conflictingAction (existing new : ActionType)
  | conflictingActionRetry
  deriving DecidableEq

abbrev Answer := Except CommitError EnforcementDecisionV1

/-- What a call is refused for before anything is looked up. -/
def refusal (safe : AccessRecommendationV1 → Bool) (t : Turn) : Option CommitError :=
  if ¬ safe t.recommendation then some .notSafe
  else if t.recommendation.workflowId ≠ t.workflowId then some (.mismatch "workflow_id")
  else if t.recommendation.windowId ≠ t.windowId then some (.mismatch "window_id")
  else if t.recommendation.entityId ≠ t.entityId then some (.mismatch "entity_id")
  else if t.recommendation.logicalTimestamp ≠ t.logicalTimestamp then some (.mismatch "logical_timestamp")
  else none

/-- A retry gets the decision that is there; anything else is a conflict. -/
def answer (existing : EnforcementDecisionV1) (t : Turn) (conflict : CommitError) : Answer :=
  if existing.action = t.recommendation.action ∧
      existing.controllerRecommendationId = t.recommendation.recommendationId then .ok existing
  else .error conflict

inductive Phase where
  | called
  | missed
  | holding
  | clear
  | stored
  | returned (result : Answer)

structure System where
  ledger : InMemoryLedger
  lock : Option Nat
  phase : Nat → Phase
  /-- The calls that have taken effect, in order. -/
  log : List (Nat × Answer)

def System.start (limit : { n : Nat // 1 ≤ n }) : System := ⟨.new limit, none, fun _ => .called, []⟩

def setPhase (phase : Nat → Phase) (i : Nat) (p : Phase) : Nat → Phase := fun j => if j = i then p else phase j

def System.go (s : System) (i : Nat) (p : Phase) : System := { s with phase := setPhase s.phase i p }

/-- A call that takes effect without writing. -/
def System.finish (s : System) (i : Nat) (r : Answer) : System :=
  { s with phase := setPhase s.phase i (.returned r), log := s.log ++ [(i, r)] }

section Threads

variable (safe : AccessRecommendationV1 → Bool) (calls : Nat → Turn)

/-- The next step of a thread, if it has one. -/
def step (s : System) (i : Nat) : Option System :=
  match s.phase i with
  | .called =>
    match refusal safe (calls i) with
    | some e => some (s.finish i (.error e))
    | none =>
      match s.ledger.get (keyOf (calls i)) with
      | some existing =>
        some (s.finish i (answer existing (calls i) (.conflictingAction existing.action (calls i).recommendation.action)))
      | none => some (s.go i .missed)
  | .missed => if s.lock = none then some { s.go i .holding with lock := some i } else none
  | .holding =>
    match s.ledger.get (keyOf (calls i)) with
    | some existing => some { s.finish i (answer existing (calls i) .conflictingActionRetry) with lock := none }
    | none => some (s.go i .clear)
  | .clear =>
    some { s.go i .stored with
      ledger := s.ledger.put (keyOf (calls i)) (calls i).decision
      log := s.log ++ [(i, .ok (calls i).decision)] }
  | .stored => some { s.go i (.returned (.ok (calls i).decision)) with lock := none }
  | .returned _ => none

def run (s : System) : List Nat → Option System
  | [] => some s
  | i :: schedule => (step safe calls s i).bind fun s' => run s' schedule

/-! ## Calls one after the other -/

/-- A call that nobody interrupts. -/
def commit (l : InMemoryLedger) (t : Turn) : Answer × InMemoryLedger :=
  match refusal safe t with
  | some e => (.error e, l)
  | none =>
    match l.get (keyOf t) with
    | some existing => (answer existing t (.conflictingAction existing.action t.recommendation.action), l)
    | none => (.ok t.decision, l.put (keyOf t) t.decision)

/-- The two texts of a conflict say the same. -/
def SameAnswer : Answer → Answer → Prop
  | .ok d, .ok d' => d = d'
  | .error (.conflictingAction _ _), .error e => e = .conflictingActionRetry ∨ ∃ a b, e = .conflictingAction a b
  | .error e, .error e' => e = e'
  | _, _ => False

/-- The answers of calls made one after the other, and the ledger they leave. -/
def Sequential (l : InMemoryLedger) : List (Nat × Answer) → InMemoryLedger → Prop
  | [], l' => l = l'
  | (i, r) :: log, l' => SameAnswer (commit safe l (calls i)).1 r ∧ Sequential (commit safe l (calls i)).2 log l'

end Threads

theorem SameAnswer.refl (r : Answer) : SameAnswer r r := by
  cases r with
  | ok d => rfl
  | error e =>
    cases e with
    | conflictingAction a b => exact .inr ⟨a, b, rfl⟩
    | _ => rfl

theorem answer_same (existing : EnforcementDecisionV1) (t : Turn) :
    SameAnswer (answer existing t (.conflictingAction existing.action t.recommendation.action))
      (answer existing t .conflictingActionRetry) := by
  unfold answer
  split
  · rfl
  · exact .inl rfl

section Threads

variable {safe : AccessRecommendationV1 → Bool} {calls : Nat → Turn}

theorem sequential_append {l l' : InMemoryLedger} {a b : List (Nat × Answer)} :
    Sequential safe calls l (a ++ b) l' ↔ ∃ m, Sequential safe calls l a m ∧ Sequential safe calls m b l' := by
  induction a generalizing l with
  | nil => exact ⟨fun h => ⟨l, rfl, h⟩, fun ⟨m, hm, h⟩ => by cases hm; exact h⟩
  | cons e a ih =>
    obtain ⟨i, r⟩ := e
    simp only [List.cons_append, Sequential, ih]
    exact ⟨fun ⟨hr, m, ha, hb⟩ => ⟨m, ⟨hr, ha⟩, hb⟩, fun ⟨m, ⟨hr, ha⟩, hb⟩ => ⟨hr, m, ha, hb⟩⟩

theorem sequential_concat {l m : InMemoryLedger} {log : List (Nat × Answer)} (h : Sequential safe calls l log m) {i : Nat}
    {r : Answer} {l' : InMemoryLedger} (hr : SameAnswer (commit safe m (calls i)).1 r) (hl : (commit safe m (calls i)).2 = l') :
    Sequential safe calls l (log ++ [(i, r)]) l' :=
  (sequential_append).mpr ⟨m, h, hr, hl⟩

/-! ## Interleaved calls -/

/-- A thread that has looked and has had no answer yet. -/
def Phase.Underway : Phase → Prop
  | .missed | .holding | .clear => True
  | _ => False

def Phase.Holds : Phase → Prop
  | .holding | .clear | .stored => True
  | _ => False

/-- What is so between any two steps. -/
structure Inv (safe : AccessRecommendationV1 → Bool) (calls : Nat → Turn) (limit : { n : Nat // 1 ≤ n }) (s : System) :
    Prop where
  sequential : Sequential safe calls (.new limit) s.log s.ledger
  once : (s.log.map Prod.fst).Nodup
  open_ : ∀ i, s.phase i = .called ∨ (s.phase i).Underway → i ∉ s.log.map Prod.fst
  answered : ∀ i r, s.phase i = .returned r → (i, r) ∈ s.log
  written : ∀ i, s.phase i = .stored → (i, .ok (calls i).decision) ∈ s.log
  admitted : ∀ i, (s.phase i).Underway → refusal safe (calls i) = none
  locked : ∀ i, (s.phase i).Holds ↔ s.lock = some i
  vacant : ∀ i, s.phase i = .clear → s.ledger.get (keyOf (calls i)) = none

theorem inv_start (limit : { n : Nat // 1 ≤ n }) : Inv safe calls limit (.start limit) where
  sequential := rfl
  once := List.nodup_nil
  open_ := fun _ _ h => nomatch h
  answered := fun _ _ h => nomatch h
  written := fun _ h => nomatch h
  admitted := fun _ h => h.elim
  locked := fun _ => ⟨fun h => h.elim, fun h => nomatch h⟩
  vacant := fun _ h => nomatch h

theorem setPhase_same (phase : Nat → Phase) (i : Nat) (p : Phase) : setPhase phase i p i = p := if_pos rfl

theorem setPhase_other (phase : Nat → Phase) {i j : Nat} (p : Phase) (h : j ≠ i) : setPhase phase i p j = phase j := if_neg h

/-- A step that only moves a thread along. -/
theorem Inv.go {limit : { n : Nat // 1 ≤ n }} {s : System} (h : Inv safe calls limit s) {i : Nat} {p : Phase} {lock : Option Nat}
    (hopen : i ∉ s.log.map Prod.fst) (hp : p.Underway) (hadmitted : refusal safe (calls i) = none)
    (hlock : ∀ j, (setPhase s.phase i p j).Holds ↔ lock = some j)
    (hvacant : p = .clear → s.ledger.get (keyOf (calls i)) = none) :
    Inv safe calls limit ⟨s.ledger, lock, setPhase s.phase i p, s.log⟩ where
  sequential := h.sequential
  once := h.once
  open_ := fun j hj => by
    dsimp only at hj
    by_cases hji : j = i
    · rw [hji]
      exact hopen
    · exact h.open_ j (by rwa [setPhase_other _ _ hji] at hj)
  answered := fun j r hj => by
    dsimp only at hj
    by_cases hji : j = i
    · subst hji
      rw [setPhase_same] at hj
      rw [hj] at hp
      exact hp.elim
    · exact h.answered j r (by rwa [setPhase_other _ _ hji] at hj)
  written := fun j hj => by
    dsimp only at hj
    by_cases hji : j = i
    · subst hji
      rw [setPhase_same] at hj
      rw [hj] at hp
      exact hp.elim
    · exact h.written j (by rwa [setPhase_other _ _ hji] at hj)
  admitted := fun j hj => by
    dsimp only at hj
    by_cases hji : j = i
    · rw [hji]
      exact hadmitted
    · exact h.admitted j (by rwa [setPhase_other _ _ hji] at hj)
  locked := hlock
  vacant := fun j hj => by
    dsimp only at hj
    by_cases hji : j = i
    · subst hji
      rw [setPhase_same] at hj
      exact hvacant hj
    · exact h.vacant j (by rwa [setPhase_other _ _ hji] at hj)

/-- A step with which a call takes effect. -/
theorem Inv.effect {limit : { n : Nat // 1 ≤ n }} {s : System} (h : Inv safe calls limit s) {i : Nat} {p : Phase}
    {lock : Option Nat} {r : Answer} {ledger : InMemoryLedger} (hopen : i ∉ s.log.map Prod.fst)
    (hsame : SameAnswer (commit safe s.ledger (calls i)).1 r) (hledger : (commit safe s.ledger (calls i)).2 = ledger)
    (hp : p = .returned r ∨ p = .stored ∧ r = .ok (calls i).decision)
    (hlock : ∀ j, (setPhase s.phase i p j).Holds ↔ lock = some j)
    (hvacant : ∀ j ≠ i, s.phase j = .clear → ledger.get (keyOf (calls j)) = none) :
    Inv safe calls limit ⟨ledger, lock, setPhase s.phase i p, s.log ++ [(i, r)]⟩ where
  sequential := sequential_concat h.sequential hsame hledger
  once := by
    rw [List.map_append, List.nodup_append]
    refine ⟨h.once, List.nodup_singleton _, fun j hj k hk he => hopen ?_⟩
    rw [List.map_singleton, List.mem_singleton] at hk
    dsimp only at hk
    rwa [← hk, ← he]
  open_ := fun j hj => by
    dsimp only at hj
    by_cases hji : j = i
    · subst hji
      rw [setPhase_same] at hj
      rcases hp with rfl | ⟨rfl, -⟩
      · exact hj.elim (fun hj => nomatch hj) fun hj => hj.elim
      · exact hj.elim (fun hj => nomatch hj) fun hj => hj.elim
    · rw [setPhase_other _ _ hji] at hj
      rw [List.map_append, List.mem_append, not_or]
      exact ⟨h.open_ j hj, by simpa using hji⟩
  answered := fun j r' hj => by
    dsimp only at hj
    by_cases hji : j = i
    · subst hji
      rw [setPhase_same] at hj
      rcases hp with rfl | ⟨rfl, -⟩
      · cases hj
        simp
      · cases hj
    · rw [setPhase_other _ _ hji] at hj
      exact List.mem_append_left _ (h.answered j r' hj)
  written := fun j hj => by
    dsimp only at hj
    by_cases hji : j = i
    · subst hji
      rw [setPhase_same] at hj
      rcases hp with rfl | ⟨rfl, rfl⟩
      · cases hj
      · simp
    · rw [setPhase_other _ _ hji] at hj
      exact List.mem_append_left _ (h.written j hj)
  admitted := fun j hj => by
    dsimp only at hj
    by_cases hji : j = i
    · subst hji
      rw [setPhase_same] at hj
      rcases hp with rfl | ⟨rfl, -⟩ <;> exact hj.elim
    · rw [setPhase_other _ _ hji] at hj
      exact h.admitted j hj
  locked := hlock
  vacant := fun j hj => by
    dsimp only at hj
    by_cases hji : j = i
    · subst hji
      rw [setPhase_same] at hj
      rcases hp with rfl | ⟨rfl, -⟩ <;> cases hj
    · rw [setPhase_other _ _ hji] at hj
      exact hvacant j hji hj

/-- A phase without the lock does not change who holds it. -/
theorem Inv.locked_free {limit : { n : Nat // 1 ≤ n }} {s : System} (h : Inv safe calls limit s) {i : Nat} {p : Phase}
    (hfrom : ¬ (s.phase i).Holds) (hp : ¬ p.Holds) (j : Nat) : (setPhase s.phase i p j).Holds ↔ s.lock = some j := by
  by_cases hji : j = i
  · subst hji
    rw [setPhase_same, ← h.locked j]
    exact ⟨fun hh => (hp hh).elim, fun hh => (hfrom hh).elim⟩
  · rw [setPhase_other _ _ hji]
    exact h.locked j

/-- Who holds the lock keeps it or gives it back. -/
theorem Inv.locked_own {limit : { n : Nat // 1 ≤ n }} {s : System} (h : Inv safe calls limit s) {i : Nat} {p : Phase}
    (hlock : s.lock = none ∨ s.lock = some i) (j : Nat) :
    (p.Holds → ((setPhase s.phase i p j).Holds ↔ some i = some j)) ∧
      (¬ p.Holds → ((setPhase s.phase i p j).Holds ↔ none = some j)) := by
  by_cases hji : j = i
  · subst hji
    rw [setPhase_same]
    exact ⟨fun hp => ⟨fun _ => rfl, fun _ => hp⟩, fun hp => ⟨fun hh => (hp hh).elim, fun hh => nomatch hh⟩⟩
  · have hnot : ¬ (s.phase j).Holds := by
      rw [h.locked j]
      rcases hlock with hlock | hlock
      · rw [hlock]
        exact fun he => nomatch he
      · rw [hlock]
        exact fun he => hji (Option.some.inj he).symm
    rw [setPhase_other _ _ hji]
    exact ⟨fun _ => ⟨fun hh => (hnot hh).elim, fun hh => (hji (Option.some.inj hh).symm).elim⟩,
      fun _ => ⟨fun hh => (hnot hh).elim, fun hh => nomatch hh⟩⟩

theorem Inv.step {limit : { n : Nat // 1 ≤ n }} {s s' : System} (h : Inv safe calls limit s) {i : Nat}
    (hstep : step safe calls s i = some s') : Inv safe calls limit s' := by
  unfold ActionCommits.step at hstep
  cases hphase : s.phase i with
  | called =>
    have hopen := h.open_ i (.inl hphase)
    have hfree : ¬ (s.phase i).Holds := by rw [hphase]; exact id
    rw [hphase] at hstep
    dsimp only at hstep
    cases hrefusal : refusal safe (calls i) with
    | some e =>
      rw [hrefusal] at hstep
      cases hstep
      have hcommit : commit safe s.ledger (calls i) = (.error e, s.ledger) := by rw [commit, hrefusal]
      exact h.effect hopen (hcommit ▸ .refl _) (congrArg Prod.snd hcommit) (.inl rfl) (h.locked_free hfree id)
        fun j _ hj => h.vacant j hj
    | none =>
      rw [hrefusal] at hstep
      dsimp only at hstep
      cases hget : s.ledger.get (keyOf (calls i)) with
      | some existing =>
        rw [hget] at hstep
        cases hstep
        have hcommit : commit safe s.ledger (calls i) = (answer existing (calls i)
            (.conflictingAction existing.action (calls i).recommendation.action), s.ledger) := by
          rw [commit, hrefusal]
          dsimp only
          rw [hget]
        exact h.effect hopen (hcommit ▸ .refl _) (congrArg Prod.snd hcommit) (.inl rfl) (h.locked_free hfree id)
          fun j _ hj => h.vacant j hj
      | none =>
        rw [hget] at hstep
        cases hstep
        exact h.go hopen trivial hrefusal (h.locked_free hfree id) fun hclear => nomatch hclear
  | missed =>
    rw [hphase] at hstep
    dsimp only at hstep
    split at hstep
    · rename_i hlock
      cases hstep
      have hunder : (s.phase i).Underway := by rw [hphase]; trivial
      exact h.go (h.open_ i (.inr hunder)) trivial (h.admitted i hunder)
        (fun j => (h.locked_own (.inl hlock) j).1 trivial) fun hclear => nomatch hclear
    · cases hstep
  | holding =>
    have hunder : (s.phase i).Underway := by rw [hphase]; trivial
    have hlock : s.lock = some i := (h.locked i).mp (by rw [hphase]; trivial)
    have hrefusal := h.admitted i hunder
    rw [hphase] at hstep
    dsimp only at hstep
    cases hget : s.ledger.get (keyOf (calls i)) with
    | some existing =>
      rw [hget] at hstep
      cases hstep
      have hcommit : commit safe s.ledger (calls i) = (answer existing (calls i)
          (.conflictingAction existing.action (calls i).recommendation.action), s.ledger) := by
        rw [commit, hrefusal]
        dsimp only
        rw [hget]
      exact h.effect (h.open_ i (.inr hunder)) (hcommit ▸ answer_same existing (calls i)) (congrArg Prod.snd hcommit)
        (.inl rfl) (fun j => (h.locked_own (.inr hlock) j).2 id) fun j _ hj => h.vacant j hj
    | none =>
      rw [hget] at hstep
      cases hstep
      refine h.go (h.open_ i (.inr hunder)) trivial hrefusal (fun j => ?_) fun _ => hget
      exact hlock ▸ (h.locked_own (.inr hlock) j).1 trivial
  | clear =>
    have hunder : (s.phase i).Underway := by rw [hphase]; trivial
    have hlock : s.lock = some i := (h.locked i).mp (by rw [hphase]; trivial)
    rw [hphase] at hstep
    cases hstep
    have hcommit : commit safe s.ledger (calls i) =
        (.ok (calls i).decision, s.ledger.put (keyOf (calls i)) (calls i).decision) := by
      rw [commit, h.admitted i hunder]
      dsimp only
      rw [h.vacant i hphase]
    refine h.effect (h.open_ i (.inr hunder)) (hcommit ▸ .refl _) (congrArg Prod.snd hcommit) (.inr ⟨rfl, rfl⟩)
      (fun j => hlock ▸ (h.locked_own (.inr hlock) j).1 trivial) fun j hji hj => ?_
    -- whoever else found nothing under the lock would hold it too
    have hother : s.lock = some j := (h.locked j).mp (by rw [hj]; trivial)
    rw [hlock] at hother
    exact (hji (Option.some.inj hother).symm).elim
  | stored =>
    have hlock : s.lock = some i := (h.locked i).mp (by rw [hphase]; trivial)
    rw [hphase] at hstep
    cases hstep
    refine ⟨h.sequential, h.once, fun j hj => ?_, fun j r hj => ?_, fun j hj => ?_, fun j hj => ?_,
      fun j => (h.locked_own (.inr hlock) j).2 id, fun j hj => ?_⟩
    all_goals
      dsimp only [System.go] at hj
      by_cases hji : j = i
      · subst hji
        rw [setPhase_same] at hj
        first
        | exact hj.elim (fun hj => nomatch hj) fun hj => hj.elim
        | exact hj.elim
        | (cases hj; exact h.written j hphase)
        | cases hj
      · rw [setPhase_other _ _ hji] at hj
        first
        | exact h.open_ j hj
        | exact h.answered j r hj
        | exact h.written j hj
        | exact h.admitted j hj
        | exact h.vacant j hj
  | returned r =>
    rw [hphase] at hstep
    cases hstep

theorem Inv.run {limit : { n : Nat // 1 ≤ n }} {s s' : System} (h : Inv safe calls limit s) {schedule : List Nat}
    (hrun : run safe calls s schedule = some s') : Inv safe calls limit s' := by
  induction schedule generalizing s with
  | nil =>
    cases hrun
    exact h
  | cons i schedule ih =>
    obtain ⟨m, hstep, hrest⟩ := Option.bind_eq_some_iff.mp hrun
    exact ih (h.step hstep) hrest

theorem step_log {s s' : System} {i : Nat} (h : step safe calls s i = some s') : s.log <+: s'.log := by
  unfold step at h
  split at h
  · split at h
    · cases h
      exact List.prefix_append _ _
    · split at h
      · cases h
        exact List.prefix_append _ _
      · cases h
        exact List.prefix_refl _
  · split at h
    · cases h
      exact List.prefix_refl _
    · cases h
  · split at h
    · cases h
      exact List.prefix_append _ _
    · cases h
      exact List.prefix_refl _
  · cases h
    exact List.prefix_append _ _
  · cases h
    exact List.prefix_refl _
  · cases h

theorem run_log {s s' : System} {schedule : List Nat} (h : run safe calls s schedule = some s') : s.log <+: s'.log := by
  induction schedule generalizing s with
  | nil =>
    cases h
    exact List.prefix_refl _
  | cons i schedule ih =>
    obtain ⟨m, hstep, hrest⟩ := Option.bind_eq_some_iff.mp h
    exact (step_log hstep).trans (ih hrest)

/-- However the threads take turns, the answers are those of the same calls made one after the
other, each at a moment between its beginning and its end: a call that has returned by some
time comes before every call that has not begun by then. -/
theorem commits_linearize {limit : { n : Nat // 1 ≤ n }} {before after : List Nat} {s s' : System}
    (hbefore : run safe calls (.start limit) before = some s) (hafter : run safe calls s after = some s') :
    Sequential safe calls (.new limit) s'.log s'.ledger ∧ (s'.log.map Prod.fst).Nodup ∧
      (∀ i r, s'.phase i = .returned r → (i, r) ∈ s'.log) ∧
      ∃ later, s'.log = s.log ++ later ∧ (∀ i r, s.phase i = .returned r → (i, r) ∈ s.log) ∧
        ∀ i, s.phase i = .called → i ∉ s.log.map Prod.fst := by
  have hs := (inv_start limit).run hbefore
  have hs' := hs.run hafter
  obtain ⟨later, hlater⟩ := run_log hafter
  exact ⟨hs'.sequential, hs'.once, hs'.answered, later, hlater.symm, hs.answered, fun i hi => hs.open_ i (.inl hi)⟩

/-- A recommendation to block, committed by whoever comes. -/
def blockTurn (i : Nat) : Turn where
  workflowId := "w"
  replayId := "r"
  windowId := 1
  logicalTimestamp := "t"
  entityId := "lamp"
  recommendation := ⟨"rec", "w", "lamp", 1, "t", .block, "p", "1", [], true, true, []⟩
  decisionId := if i = 0 then "first" else "second"
  written := true
  accepted := true

def freely : AccessRecommendationV1 → Bool := fun _ => true

/-- Both look, then the first commits and the second finds its decision. -/
def twoThreads : List Nat := [0, 1, 0, 0, 0, 0, 1, 1]

theorem twoThreads_run : ∃ s, run freely blockTurn (.start ⟨2, by decide⟩) twoThreads = some s ∧
    s.log = [(0, .ok (blockTurn 0).decision), (1, .ok (blockTurn 0).decision)] := ⟨_, rfl, rfl⟩

theorem two_commits_linearize : ∃ s, run freely blockTurn (.start ⟨2, by decide⟩) twoThreads = some s ∧
    Sequential freely blockTurn (.new ⟨2, by decide⟩) s.log s.ledger := by
  obtain ⟨s, hrun, -⟩ := twoThreads_run
  have hended : run freely blockTurn s [] = some s := rfl
  exact ⟨s, hrun, (commits_linearize hrun hended).1⟩

end Threads

/-! ## A key is decided once -/

/-- The ledger has decisions for the keys that it has in order, and no more than it may. -/
structure Kept (l : InMemoryLedger) : Prop where
  nodup : l.order.Nodup
  mem : ∀ k, k ∈ l.store ↔ k ∈ l.order
  bounded : l.order.length ≤ l.limit

theorem kept_new (limit : { n : Nat // 1 ≤ n }) : Kept (.new limit) where
  nodup := List.nodup_nil
  mem := fun k => ⟨fun h => (AList.notMem_empty k h).elim, fun h => nomatch h⟩
  bounded := Nat.zero_le _

theorem evict_room {limit : Nat} {order : List Key} {store : Store} (h : order.length ≤ limit) :
    evict limit order store = (order, store) := by
  cases order with
  | nil => rfl
  | cons old order => rw [evict, if_neg (Nat.not_lt.mpr h)]

theorem evict_one {limit : Nat} {old : Key} {order : List Key} {store : Store} (h : (old :: order).length = limit + 1) :
    evict limit (old :: order) store = (order, store.erase old) := by
  rw [evict, if_pos (by omega), evict_room (by rw [List.length_cons] at h; omega)]

/-- A new key is the last one; the first one goes if there is no room. -/
theorem put_cases {l : InMemoryLedger} (h : Kept l) {key : Key} (hkey : l.get key = none) (d : EnforcementDecisionV1) :
    (l.order.length < l.limit ∧ l.put key d = ⟨l.limit, l.store.insert key d, l.order ++ [key]⟩) ∨
    ∃ old order, l.order = old :: order ∧ l.order.length = l.limit ∧
      l.put key d = ⟨l.limit, (l.store.erase old).insert key d, order ++ [key]⟩ := by
  have hnew : key ∉ l.store := by
    rw [← AList.lookup_isSome, ← InMemoryLedger.get, hkey]
    simp
  have hput : l.put key d = ⟨l.limit, (evict l.limit (l.order ++ [key]) l.store).2.insert key d,
      (evict l.limit (l.order ++ [key]) l.store).1⟩ := by
    simp only [InMemoryLedger.put, if_neg hnew]
  by_cases hroom : l.order.length < l.limit
  · refine .inl ⟨hroom, ?_⟩
    rw [hput, evict_room (by rw [List.length_append, List.length_singleton]; omega)]
  · have hfull : l.order.length = l.limit := le_antisymm h.bounded (Nat.not_lt.mp hroom)
    cases horder : l.order with
    | nil =>
      have hpos := l.limit.2
      rw [← hfull, horder] at hpos
      cases hpos
    | cons old order =>
      refine .inr ⟨old, order, rfl, horder ▸ hfull, ?_⟩
      have hlength : (old :: (order ++ [key])).length = l.limit + 1 := by
        rw [← hfull, horder, List.length_cons, List.length_append, List.length_singleton, List.length_cons]
      rw [hput, horder, List.cons_append, evict_one hlength]

theorem Kept.put {l : InMemoryLedger} (h : Kept l) {key : Key} (hkey : l.get key = none) (d : EnforcementDecisionV1) :
    Kept (l.put key d) := by
  have hnew : key ∉ l.order := by
    rw [← h.mem, ← AList.lookup_isSome, ← InMemoryLedger.get, hkey]
    simp
  rcases put_cases h hkey d with ⟨hroom, hput⟩ | ⟨old, order, horder, hfull, hput⟩
  · rw [hput]
    refine ⟨?_, fun k => ?_, ?_⟩
    · exact List.nodup_append.mpr ⟨h.nodup, List.nodup_singleton _, fun a ha b hb he => hnew (by
        rwa [← List.mem_singleton.mp hb, ← he])⟩
    · rw [AList.mem_insert, h.mem, List.mem_append, List.mem_singleton, or_comm]
    · rw [List.length_append, List.length_singleton]
      exact hroom
  · rw [hput]
    rw [horder, List.mem_cons, not_or] at hnew
    have hnodup := h.nodup
    rw [horder, List.nodup_cons] at hnodup
    refine ⟨?_, fun k => ?_, ?_⟩
    · exact List.nodup_append.mpr ⟨hnodup.2, List.nodup_singleton _, fun a ha b hb he => hnew.2 (by
        rwa [← List.mem_singleton.mp hb, ← he])⟩
    · rw [AList.mem_insert, AList.mem_erase, h.mem, horder, List.mem_append, List.mem_singleton, List.mem_cons]
      constructor
      · rintro (rfl | ⟨hne, rfl | hk⟩)
        · exact .inr rfl
        · exact (hne rfl).elim
        · exact .inl hk
      · rintro (hk | rfl)
        · exact .inr ⟨fun he => hnodup.1 (he ▸ hk), .inr hk⟩
        · exact .inl rfl
    · rw [List.length_append, List.length_singleton, ← hfull, horder, List.length_cons]

/-- A key with its decision, and not more than so many keys after it. -/
def Within (n : Nat) (k : Key) (d : EnforcementDecisionV1) (l : InMemoryLedger) : Prop :=
  l.get k = some d ∧ ∃ older newer, l.order = older ++ k :: newer ∧ newer.length ≤ n

theorem within_put {l : InMemoryLedger} (h : Kept l) {key : Key} (hkey : l.get key = none) (d : EnforcementDecisionV1) :
    Within 0 key d (l.put key d) := by
  rcases put_cases h hkey d with ⟨-, hput⟩ | ⟨old, order, -, -, hput⟩
  · rw [hput]
    exact ⟨AList.lookup_insert _, l.order, [], rfl, Nat.le_refl 0⟩
  · rw [hput]
    exact ⟨AList.lookup_insert _, order, [], rfl, Nat.le_refl 0⟩

theorem Within.put {n : Nat} {k : Key} {d : EnforcementDecisionV1} {l : InMemoryLedger} (hw : Within n k d l) (h : Kept l)
    (hn : n + 1 < l.limit) {key : Key} (hkey : l.get key = none) (x : EnforcementDecisionV1) :
    Within (n + 1) k d (l.put key x) := by
  obtain ⟨hget, older, newer, horder, hlength⟩ := hw
  have hne : k ≠ key := by
    rintro rfl
    rw [hget] at hkey
    cases hkey
  rcases put_cases h hkey x with ⟨-, hput⟩ | ⟨old, order, hold, hfull, hput⟩
  · rw [hput]
    refine ⟨?_, older, newer ++ [key], by rw [horder, List.append_assoc]; rfl, ?_⟩
    · exact (AList.lookup_insert_ne hne).trans hget
    · rw [List.length_append, List.length_singleton]
      omega
  · rw [hput]
    cases older with
    | nil =>
      -- the oldest key would have too few after it
      rw [horder, List.nil_append, List.length_cons] at hfull
      omega
    | cons first older =>
      rw [hold, List.cons_append, List.cons.injEq] at horder
      have hnodup := h.nodup
      rw [hold, List.nodup_cons, horder.2] at hnodup
      have hold' : k ≠ old := by
        rintro rfl
        exact hnodup.1 (by simp)
      refine ⟨?_, older, newer ++ [key], by rw [horder.2, List.append_assoc]; rfl, ?_⟩
      · exact (AList.lookup_insert_ne hne).trans ((AList.lookup_erase_ne hold').trans hget)
      · rw [List.length_append, List.length_singleton]
        omega

section Deciding

variable {safe : AccessRecommendationV1 → Bool} {calls : Nat → Turn}

/-- A call either leaves the ledger as it is, or writes a decision where there was none. -/
theorem commit_cases (l : InMemoryLedger) (t : Turn) :
    (∃ e, commit safe l t = (.error e, l)) ∨
    (∃ d, l.get (keyOf t) = some d ∧ d.action = t.recommendation.action ∧
      d.controllerRecommendationId = t.recommendation.recommendationId ∧ commit safe l t = (.ok d, l)) ∨
    (l.get (keyOf t) = none ∧ commit safe l t = (.ok t.decision, l.put (keyOf t) t.decision)) := by
  unfold commit
  cases hrefusal : refusal safe t with
  | some e => exact .inl ⟨e, rfl⟩
  | none =>
    dsimp only
    cases hget : l.get (keyOf t) with
    | none => exact .inr (.inr ⟨rfl, rfl⟩)
    | some d =>
      dsimp only
      unfold answer
      split
      · rename_i hsame
        exact .inr (.inl ⟨d, rfl, hsame.1, hsame.2, rfl⟩)
      · exact .inl ⟨_, rfl⟩

theorem sameAnswer_ok {r : Answer} {d : EnforcementDecisionV1} : SameAnswer r (.ok d) ↔ r = .ok d := by
  cases r with
  | ok d' => exact ⟨fun h => congrArg Except.ok h, fun h => Except.ok.inj h⟩
  | error e => cases e <;> simp [SameAnswer]

theorem sameAnswer_error {r : Answer} {e : CommitError} (h : SameAnswer r (.error e)) : ∃ e', r = .error e' := by
  cases r with
  | ok d => exact h.elim
  | error e' => exact ⟨e', rfl⟩

/-- What a call is to a key that is kept. -/
theorem commit_within {n : Nat} {k : Key} {d : EnforcementDecisionV1} {l : InMemoryLedger} (hw : Within n k d l) (h : Kept l)
    (t : Turn) :
    Kept (commit safe l t).2 ∧ (commit safe l t).2.limit = l.limit ∧
      (keyOf t = k ∨ (∃ e, (commit safe l t).1 = .error e) → Within n k d (commit safe l t).2) ∧
      (n + 1 < l.limit → Within (n + 1) k d (commit safe l t).2) := by
  have hmore : Within (n + 1) k d l := by
    obtain ⟨hget, older, newer, horder, hlength⟩ := hw
    exact ⟨hget, older, newer, horder, Nat.le_succ_of_le hlength⟩
  rcases commit_cases l t with ⟨e, hcommit⟩ | ⟨d', -, -, -, hcommit⟩ | ⟨hnone, hcommit⟩
  · rw [hcommit]
    exact ⟨h, rfl, fun _ => hw, fun _ => hmore⟩
  · rw [hcommit]
    exact ⟨h, rfl, fun _ => hw, fun _ => hmore⟩
  · rw [hcommit]
    refine ⟨h.put hnone _, rfl, fun hsame => ?_, fun hn => hw.put h hn hnone _⟩
    rcases hsame with hsame | ⟨e, he⟩
    · rw [hsame, hw.1] at hnone
      cases hnone
    · cases he

/-- The successful calls of other keys. -/
def others (calls : Nat → Turn) (k : Key) (log : List (Nat × Answer)) : Nat :=
  log.countP fun e => e.2.isOk && keyOf (calls e.1) ≠ k

theorem sequential_within {log : List (Nat × Answer)} {l l' : InMemoryLedger} (hseq : Sequential safe calls l log l') {n : Nat}
    {k : Key} {d : EnforcementDecisionV1} (hw : Within n k d l) (h : Kept l) (hn : n + others calls k log < l.limit) :
    Within (n + others calls k log) k d l' := by
  induction log generalizing l n with
  | nil =>
    cases hseq
    exact hw
  | cons e log ih =>
    obtain ⟨i, r⟩ := e
    obtain ⟨hr, hseq⟩ := hseq
    obtain ⟨hkept, hlimit, hsame, hother⟩ := @commit_within safe _ _ _ _ hw h (calls i)
    by_cases hcounts : r.isOk ∧ keyOf (calls i) ≠ k
    · have hcount : others calls k ((i, r) :: log) = others calls k log + 1 :=
        List.countP_cons_of_pos (by simpa using hcounts)
      rw [hcount] at hn ⊢
      rw [← Nat.add_assoc, Nat.add_right_comm]
      exact ih hseq (hother (by omega)) hkept (by rw [hlimit]; omega)
    · have hcount : others calls k ((i, r) :: log) = others calls k log :=
        List.countP_cons_of_neg (by simpa using hcounts)
      rw [hcount] at hn ⊢
      refine ih hseq (hsame ?_) hkept (by rw [hlimit]; exact hn)
      by_cases hk : keyOf (calls i) = k
      · exact .inl hk
      · cases r with
        | ok d' => exact (hcounts ⟨rfl, hk⟩).elim
        | error e => exact .inr (sameAnswer_error hr)

/-- What a ledger has, a call before has decided. -/
theorem sequential_decided {log : List (Nat × Answer)} {l l' : InMemoryLedger} (hseq : Sequential safe calls l log l')
    (h : Kept l) : Kept l' ∧ l'.limit = l.limit ∧ ∀ k, (l'.get k).isSome →
      (l.get k).isSome ∨ ∃ e ∈ log, keyOf (calls e.1) = k ∧ e.2.isOk = true := by
  induction log generalizing l with
  | nil =>
    cases hseq
    exact ⟨h, rfl, fun k hk => .inl hk⟩
  | cons e log ih =>
    obtain ⟨i, r⟩ := e
    obtain ⟨hr, hseq⟩ := hseq
    have hcases : Kept (commit safe l (calls i)).2 ∧ (commit safe l (calls i)).2.limit = l.limit ∧
        ∀ k, ((commit safe l (calls i)).2.get k).isSome → (l.get k).isSome ∨ keyOf (calls i) = k ∧ r.isOk = true := by
      rcases commit_cases l (calls i) with ⟨e, hcommit⟩ | ⟨d', -, -, -, hcommit⟩ | ⟨hnone, hcommit⟩
      · rw [hcommit]
        exact ⟨h, rfl, fun k hk => .inl hk⟩
      · rw [hcommit]
        exact ⟨h, rfl, fun k hk => .inl hk⟩
      · rw [hcommit] at hr ⊢
        have hok : r.isOk = true := by
          cases r with
          | ok d' => rfl
          | error e =>
            obtain ⟨e', he'⟩ := sameAnswer_error hr
            cases he'
        refine ⟨h.put hnone _, rfl, fun k hk => ?_⟩
        by_cases hkey : k = keyOf (calls i)
        · exact .inr ⟨hkey.symm, hok⟩
        · left
          rcases put_cases h hnone (calls i).decision with ⟨-, hput⟩ | ⟨old, order, -, -, hput⟩
          · rwa [hput, InMemoryLedger.get, AList.lookup_insert_ne hkey] at hk
          · rw [hput, InMemoryLedger.get, AList.lookup_insert_ne hkey] at hk
            by_cases hold : k = old
            · rw [hold, AList.lookup_erase] at hk
              cases hk
            · rwa [AList.lookup_erase_ne hold] at hk
    obtain ⟨hkept, hlimit, hmore⟩ := ih hseq hcases.1
    refine ⟨hkept, hlimit.trans hcases.2.1, fun k hk => ?_⟩
    rcases hmore k hk with hk | ⟨e, he, hkey⟩
    · rcases hcases.2.2 k hk with hk | hk
      · exact .inl hk
      · exact .inr ⟨_, List.mem_cons_self, hk⟩
    · exact .inr ⟨e, List.mem_cons_of_mem _ he, hkey⟩

end Deciding

end ActionCommits
